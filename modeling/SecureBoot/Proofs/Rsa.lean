import Mathlib.FieldTheory.Finite.Basic
import Mathlib.NumberTheory.LucasPrimality
import Mathlib.Tactic.NormNum.Prime
import SecureBoot.Proofs.Arithmetic
import SecureBoot.Rsa.Basic

/-!
# Rsa — the public exponentiation undoes the private one

`PrivateKey.WellFormed` says how the numbers of a private key belong together.  Then the two
exponentiations are inverse on all numbers below the modulus (`PrivateKey.WellFormed.apply_apply`),
those that share a factor with the modulus included: the exponents are inverse modulo each prime
less one, so Fermat's theorem applies modulo each prime.

`PrivateKey.Usable` adds what verification and key records ask of a key.  `sampleKey` is such a key;
its primes are close to powers of two times a small prime, for which the test of Lucas takes
squarings only (`prime_of_squarings`).
-/

namespace SecureBoot.Rsa

/-! ## Exponents -/

/-- Fermat's theorem, for all numbers. -/
theorem pow_modEq_self {p k : Nat} (hp : p.Prime) (hpos : 0 < k) (hk : k ≡ 1 [MOD p - 1])
    (x : Nat) : x ^ k ≡ x [MOD p] := by
  have : Fact p.Prime := ⟨hp⟩
  rcases (Nat.modEq_iff_dvd' hpos).1 hk.symm with ⟨t, ht⟩
  have hsplit : k = 1 + (p - 1) * t := by
    rw [← ht, Nat.add_sub_cancel' hpos]
  apply (ZMod.natCast_eq_natCast_iff _ _ _).1
  rw [Nat.cast_pow]
  -- A multiple of the prime is zero on both sides.
  by_cases hx : (x : ZMod p) = 0
  · rw [hx, zero_pow (Nat.ne_of_gt hpos)]
  · rw [hsplit, pow_add, pow_one, pow_mul, ZMod.pow_card_sub_one_eq_one hx, one_pow, mul_one]

/-! ## Private keys -/

namespace PrivateKey

/-- The primes are different, odd and make up the modulus, and the exponents are inverse modulo each
prime less one. -/
structure WellFormed (key : PrivateKey) : Prop where
  prime1 : key.prime1.Prime
  prime2 : key.prime2.Prime
  ne : key.prime1 ≠ key.prime2
  odd1 : key.prime1 % 2 = 1
  odd2 : key.prime2 % 2 = 1
  modulus_eq : key.modulus = key.prime1 * key.prime2
  inverse1 : key.exponent * key.privateExponent ≡ 1 [MOD key.prime1 - 1]
  inverse2 : key.exponent * key.privateExponent ≡ 1 [MOD key.prime2 - 1]

namespace WellFormed

variable {key : PrivateKey}

theorem modulus_odd (h : key.WellFormed) : key.modulus % 2 = 1 := by
  rw [h.modulus_eq, Nat.mul_mod, h.odd1, h.odd2]

theorem modulus_pos (h : key.WellFormed) : 0 < key.modulus := by
  rw [h.modulus_eq]
  exact Nat.mul_pos h.prime1.pos h.prime2.pos

theorem exponents_pos (h : key.WellFormed) : 0 < key.exponent * key.privateExponent := by
  apply Nat.pos_of_ne_zero
  intro hzero
  have hinverse := h.inverse1
  rw [hzero] at hinverse
  -- Only modulo one are zero and one the same, and no odd prime less one is one.
  have hone : key.prime1 - 1 ∣ 1 := Nat.modEq_zero_iff_dvd.1 hinverse.symm
  have hprime : key.prime1 - 1 = 1 := Nat.dvd_one.1 hone
  have hodd := h.odd1
  omega

end WellFormed

/-- The public exponentiation undoes the private one. -/
theorem WellFormed.apply_apply {key : PrivateKey} (h : key.WellFormed) {x : Nat}
    (hx : x < key.modulus) :
    key.toPublicKey.apply (key.apply x) = x := by
  have hpower (p : Nat) (hp : p.Prime)
      (hinverse : key.exponent * key.privateExponent ≡ 1 [MOD p - 1]) :
      x ^ (key.exponent * key.privateExponent) ≡ x [MOD p] :=
    pow_modEq_self hp h.exponents_pos hinverse x
  have hcoprime : Nat.Coprime key.prime1 key.prime2 :=
    (Nat.coprime_primes h.prime1 h.prime2).2 h.ne
  have hboth : x ^ (key.exponent * key.privateExponent) ≡ x [MOD key.modulus] := by
    rw [h.modulus_eq]
    exact (Nat.modEq_and_modEq_iff_modEq_mul hcoprime).1
      ⟨hpower _ h.prime1 h.inverse1, hpower _ h.prime2 h.inverse2⟩
  calc
    key.toPublicKey.apply (key.apply x)
        = x ^ (key.exponent * key.privateExponent) % key.modulus := by
          rw [PublicKey.apply, PrivateKey.apply, powMod_eq, powMod_eq, ← Nat.pow_mod, ← pow_mul,
            Nat.mul_comm]
    _ = x % key.modulus := hboth
    _ = x := Nat.mod_eq_of_lt hx

theorem WellFormed.apply_lt {key : PrivateKey} (h : key.WellFormed) (x : Nat) :
    key.apply x < key.modulus :=
  powMod_lt x key.privateExponent h.modulus_pos

/-- A well-formed key with a modulus of 3072 bits and an odd public exponent of 32 bits. -/
structure Usable (key : PrivateKey) : Prop extends WellFormed key where
  bitLength_eq : bitLength key.modulus = 3072
  exponent_odd : key.exponent % 2 = 1
  three_le : 3 ≤ key.exponent
  exponent_lt : key.exponent < 2 ^ 32

theorem Usable.check {key : PrivateKey} (h : key.Usable) : key.toPublicKey.check = .ok () := by
  have hexponent := h.exponent_lt
  have hlarge : 2 ^ 32 ≤ key.modulus :=
    two_pow_le_of_lt_bitLength (h.bitLength_eq ▸ by decide)
  have hodd := h.modulus_odd
  have hexponentOdd := h.exponent_odd
  have hthree := h.three_le
  rw [PublicKey.check, if_neg, if_neg, if_neg, if_neg, if_neg]
  · rw [PublicKey.maxExponentBits]
    omega
  · omega
  · omega
  · omega
  · rw [h.bitLength_eq]
    decide

end PrivateKey

/-! ## A sample key -/

/-- A remainder squared so many times. -/
def squarings : Nat → Nat → Nat → Nat
  | 0, x, n => x % n
  | count + 1, x, n => squarings count (x * x % n) n

theorem squarings_eq (count x n : Nat) : squarings count x n = x ^ 2 ^ count % n := by
  induction count generalizing x with
  | zero => rw [squarings, Nat.pow_zero, Nat.pow_one]
  | succ count ih =>
      rw [squarings, ih, ← Nat.pow_mod, ← pow_two, ← pow_mul, ← pow_succ']

/-- The test of Lucas for a power of two times a prime, plus one. -/
theorem prime_of_squarings {p : Nat} (k m a : Nat) (hk : k.Prime) (hp : k * 2 ^ (m + 1) + 1 = p)
    (hone : squarings (m + 1) (a ^ k) p = 1) (htwo : squarings m (a ^ k) p ≠ 1)
    (hodd : squarings (m + 1) a p ≠ 1) : p.Prime := by
  have hpos : 0 < k * 2 ^ (m + 1) := Nat.mul_pos hk.pos (Nat.two_pow_pos _)
  have hpred : p - 1 = k * 2 ^ (m + 1) := by
    rw [← hp, Nat.add_sub_cancel]
  have hcast (e : Nat) : (a : ZMod p) ^ e = 1 ↔ a ^ e % p = 1 := by
    have hmod : 1 % p = 1 := Nat.mod_eq_of_lt (by omega)
    rw [← Nat.cast_pow, ← Nat.cast_one, ZMod.natCast_eq_natCast_iff', hmod]
  rw [squarings_eq] at hone htwo hodd
  rw [← pow_mul] at hone htwo
  apply lucas_primality p (a : ZMod p)
  · rw [hpred, hcast]
    exact hone
  · intro q hq hdvd
    rw [hpred] at hdvd ⊢
    rw [ne_eq, hcast]
    -- The only primes in question are two and the factor beside the power of two.
    rcases (Nat.Prime.dvd_mul hq).1 hdvd with hqk | hqtwo
    · have hqk : q = k := (Nat.prime_dvd_prime_iff_eq hq hk).1 hqk
      rw [hqk, Nat.mul_div_cancel_left _ hk.pos]
      exact hodd
    · have hqtwo : q = 2 := (Nat.prime_dvd_prime_iff_eq hq Nat.prime_two).1
        (hq.dvd_of_dvd_pow hqtwo)
      rw [hqtwo, pow_succ, ← Nat.mul_assoc, Nat.mul_div_cancel _ (Nat.succ_pos 1)]
      exact htwo

def samplePrime1 : Nat := 4051 * 2 ^ 1524 + 1

def samplePrime2 : Nat := 193 * 2 ^ 1528 + 1

theorem prime_samplePrime1 : samplePrime1.Prime :=
  prime_of_squarings 4051 1523 3 (by norm_num) (by decide +kernel) (by decide +kernel)
    (by decide +kernel) (by decide +kernel)

theorem prime_samplePrime2 : samplePrime2.Prime :=
  prime_of_squarings 193 1527 3 (by norm_num) (by decide +kernel) (by decide +kernel)
    (by decide +kernel) (by decide +kernel)

/-- The least common multiple of the primes less one is `4051 * 193 * 2 ^ 1528`. -/
def sampleKey : PrivateKey where
  modulus := samplePrime1 * samplePrime2
  exponent := 65537
  privateExponent := (33203 * (4051 * 193 * 2 ^ 1528) + 1) / 65537
  prime1 := samplePrime1
  prime2 := samplePrime2

theorem usable_sampleKey : sampleKey.Usable where
  prime1 := prime_samplePrime1
  prime2 := prime_samplePrime2
  ne := by decide +kernel
  odd1 := by decide +kernel
  odd2 := by decide +kernel
  modulus_eq := by decide +kernel
  inverse1 := by
    unfold Nat.ModEq
    decide +kernel
  inverse2 := by
    unfold Nat.ModEq
    decide +kernel
  bitLength_eq := by decide +kernel
  exponent_odd := rfl
  three_le := by decide
  exponent_lt := by decide

end SecureBoot.Rsa
