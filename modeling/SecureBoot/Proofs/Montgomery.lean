import Mathlib.Algebra.Order.Group.Nat
import Mathlib.Data.Nat.Prime.Basic
import SecureBoot.Montgomery
import SecureBoot.Proofs.ByteOrder
import SecureBoot.Proofs.Euclid

/-!
# Montgomery — what the two constants of a modulus are for

* `Montgomery.m_eq_none_iff`: exactly the even numbers have no Montgomery word.
* `Montgomery.mul_m`: modulo a word, the product of a number with its word is `-1`, so that one step
  of a reduction clears a word (`Montgomery.dvd_reduce`).
* `Montgomery.mInWords?` computes the word with machine words; `Montgomery.mInWords?_eq` says that
  they are long enough.  `Montgomery.mOfOctets?` takes the number as octets, however many there are.
* `Montgomery.constants_characterised`: which number each of the two constants is.
-/

namespace SecureBoot.Montgomery

/-! ## The word -/

/-- `m`, computed in signed words of 128 bits. -/
def mInWords? (n : Nat) : Option (Option UInt32) :=
  (modInverseInWords? (n % wordSize) wordSize).map
    (Option.map fun inverse => -UInt32.ofNat inverse)

theorem mInWords?_eq (n : Nat) : mInWords? n = some (m n) := by
  rw [mInWords?, modInverseInWords?_eq _ (by decide) (by decide)]
  rfl

/-- The opposite of a word is its opposite as a number, modulo a word. -/
theorem natCast_neg_modEq (x : Nat) : ((-UInt32.ofNat x).toNat : Int) ≡ -x [ZMOD 2 ^ 32] := by
  have hword : (-UInt32.ofNat x).toNat = (2 ^ 32 - x % 2 ^ 32) % 2 ^ 32 := by
    rw [UInt32.toNat_neg, UInt32.toNat_ofNat']
    rfl
  have hle : x % 2 ^ 32 ≤ 2 ^ 32 := Nat.le_of_lt (Nat.mod_lt x (by decide))
  have hmod (y : Nat) : ((y % 2 ^ 32 : Nat) : Int) ≡ y [ZMOD 2 ^ 32] :=
    Int.natCast_modEq_iff.2 (Nat.mod_modEq y _)
  calc
    ((-UInt32.ofNat x).toNat : Int)
        ≡ (2 ^ 32 - x % 2 ^ 32 : Nat) [ZMOD 2 ^ 32] := hword ▸ hmod _
    _ = (2 ^ 32 : Nat) - (x % 2 ^ 32 : Nat) := Nat.cast_sub hle
    _ ≡ 0 - x [ZMOD 2 ^ 32] := (Int.modEq_zero_iff_dvd.2 (dvd_refl _)).sub (hmod x)
    _ = -x := Int.zero_sub _

theorem mul_m {n : Nat} {word : UInt32} (h : m n = some word) :
    (n * word.toNat : Int) ≡ -1 [ZMOD 2 ^ 32] := by
  rcases Option.map_eq_some_iff.1 h with ⟨inverse, hinverse, rfl⟩
  have hproduct : ((n % wordSize * inverse : Nat) : Int) ≡ 1 [ZMOD 2 ^ 32] :=
    Int.natCast_modEq_iff.2 (mul_modInverse? (by decide) hinverse).2
  have hlow : (n : Int) ≡ (n % wordSize : Nat) [ZMOD 2 ^ 32] :=
    Int.natCast_modEq_iff.2 (Nat.mod_modEq n wordSize).symm
  calc
    (n * (-UInt32.ofNat inverse).toNat : Int)
        ≡ (n % wordSize : Nat) * -inverse [ZMOD 2 ^ 32] := hlow.mul (natCast_neg_modEq inverse)
    _ = -((n % wordSize * inverse : Nat) : Int) := by
          rw [mul_neg, Nat.cast_mul]
    _ ≡ -1 [ZMOD 2 ^ 32] := hproduct.neg

/-- There is only one Montgomery word. -/
theorem word_unique {n x y : Nat} (hx : x < 2 ^ 32) (hy : y < 2 ^ 32)
    (hmulx : (n * x : Int) ≡ -1 [ZMOD 2 ^ 32]) (hmuly : (n * y : Int) ≡ -1 [ZMOD 2 ^ 32]) :
    x = y := by
  have hsame : (x : Int) ≡ y [ZMOD 2 ^ 32] := by
    calc
      (x : Int) = -(x * -1) := by ring
      _ ≡ -(x * (n * y)) [ZMOD 2 ^ 32] := (hmuly.symm.mul_left _).neg
      _ = -(n * x * y) := by ring
      _ ≡ -(-1 * y) [ZMOD 2 ^ 32] := (hmulx.mul_right _).neg
      _ = y := by ring
  exact (Int.natCast_modEq_iff.1 hsame).eq_of_lt_of_lt hx hy

theorem isSome_m {n : Nat} (h : n % 2 = 1) : (m n).isSome := by
  have hmod : n % wordSize % 2 = n % 2 := Nat.mod_mod_of_dvd n (show 2 ∣ wordSize by decide)
  have hodd : Odd (n % wordSize) := Nat.odd_iff.2 (hmod.trans h)
  have hcoprime : Nat.Coprime (n % wordSize) wordSize := hodd.coprime_two_right.pow_right 32
  rw [m, Option.isSome_map]
  exact isSome_modInverse? hcoprime

theorem odd_of_m {n : Nat} {word : UInt32} (h : m n = some word) : n % 2 = 1 := by
  have hparity : (n * word.toNat : Int) ≡ -1 [ZMOD 2] := (mul_m h).of_dvd (by decide)
  rcases Nat.mod_two_eq_zero_or_one n with heven | hodd
  · -- An even number has only even multiples.
    have hzero : (n * word.toNat : Int) ≡ 0 [ZMOD 2] := by
      rw [Int.modEq_zero_iff_dvd]
      exact Dvd.dvd.mul_right (by omega) _
    exact absurd (hzero.symm.trans hparity) (by decide)
  · exact hodd

theorem m_eq_none_iff {n : Nat} : m n = none ↔ ¬n % 2 = 1 := by
  constructor
  · intro hnone hodd
    have hsome := isSome_m hodd
    rw [hnone] at hsome
    cases hsome
  · intro heven
    cases h : m n with
    | none => rfl
    | some word => exact absurd (odd_of_m h) heven

theorem m_eq_some_iff {n : Nat} {word : UInt32} :
    m n = some word ↔ (n * word.toNat : Int) ≡ -1 [ZMOD 2 ^ 32] := by
  constructor
  · exact mul_m
  · intro h
    cases hm : m n with
    | none =>
        -- An even number has no such product with any word.
        have heven : (n : Int) ≡ 0 [ZMOD 2] := by
          rw [Int.modEq_zero_iff_dvd]
          have hmod := m_eq_none_iff.1 hm
          omega
        have hparity : (n * word.toNat : Int) ≡ -1 [ZMOD 2] := h.of_dvd (by decide)
        have hzero := (heven.mul_right (word.toNat : Int)).symm.trans hparity
        rw [zero_mul] at hzero
        exact absurd hzero (by decide)
    | some other =>
        have hsame := word_unique other.toNat_lt word.toNat_lt (mul_m hm) h
        rw [UInt32.toNat_inj.1 hsame]

/-- Only the last word of a number matters. -/
theorem m_mod (n : Nat) : m (n % 2 ^ 32) = m n := by
  have hmod : n % 2 ^ 32 % wordSize = n % wordSize := Nat.mod_mod n wordSize
  rw [m, m, hmod]

/-- A step of a Montgomery reduction: the multiple of the modulus that is added clears a word. -/
theorem dvd_reduce {n word : Nat} (h : (n * word : Int) ≡ -1 [ZMOD 2 ^ 32]) (t : Nat) :
    2 ^ 32 ∣ t + t * word % 2 ^ 32 * n := by
  have hsum : ((t + t * word % 2 ^ 32 * n : Nat) : Int) ≡ 0 [ZMOD 2 ^ 32] := by
    push_cast
    calc
      (t + t * word % 2 ^ 32 * n : Int)
          ≡ t + t * word * n [ZMOD 2 ^ 32] :=
            ((Int.mod_modEq _ _).mul_right _).add_left _
      _ = t + t * (n * word) := by ring
      _ ≡ t + t * -1 [ZMOD 2 ^ 32] := (h.mul_left _).add_left _
      _ = 0 := by ring
  exact_mod_cast Int.modEq_zero_iff_dvd.1 hsum

/-! ## The word of octets -/

/-- The first four octets of a number, least significant first; zeros stand for those that it does
not have. -/
def lowOctets (octets : Bytes) : Octets 4 where
  toBytes := octets.take 4 ++ List.replicate (4 - (octets.take 4).length) 0
  length_toBytes := by
    simp only [List.length_append, List.length_replicate, List.length_take]
    omega

theorem toNat_lowOctets (octets : Bytes) :
    (lowOctets octets).toNat = littleEndian octets % 2 ^ 32 := by
  rw [Octets.toNat, lowOctets, littleEndian_append, littleEndian_replicate_zero, Nat.mul_zero,
    Nat.add_zero, littleEndian_take]
  rfl

/-- `m` of a number in octets, computed in signed words of 128 bits. -/
def mOfOctets? (octets : Bytes) : Option (Option UInt32) :=
  (modInverseInWords? (lowOctets octets).toNat wordSize).map
    (Option.map fun inverse => -UInt32.ofNat inverse)

theorem mOfOctets?_eq (octets : Bytes) : mOfOctets? octets = some (m (littleEndian octets)) := by
  rw [mOfOctets?, toNat_lowOctets, ← mInWords?_eq]
  rfl

/-! ## The square of the radix -/

theorem rr_eq (n : Nat) : rr n = 2 ^ (2 * bitLength n) % n := by
  rw [rr, Nat.one_shiftLeft]

theorem rr_lt {n : Nat} (h : 0 < n) : rr n < n :=
  Nat.mod_lt _ h

theorem rr?_eq_none_iff {n : Nat} : rr? n = none ↔ n = 0 := by
  rw [rr?]
  split <;> simp_all

theorem rr?_eq_some_iff {n r : Nat} :
    rr? n = some r ↔ r < n ∧ r ≡ 2 ^ bitLength n * 2 ^ bitLength n [MOD n] := by
  have hsquare : 2 ^ (2 * bitLength n) = 2 ^ bitLength n * 2 ^ bitLength n := by
    rw [Nat.two_mul, Nat.pow_add]
  rw [rr?]
  split
  · next hzero =>
    -- No number is below zero.
    rw [hzero]
    exact iff_of_false nofun fun h => Nat.not_lt_zero r h.1
  · next hne =>
    rw [Option.some.injEq, rr_eq, hsquare]
    constructor
    · rintro rfl
      exact ⟨Nat.mod_lt _ (Nat.pos_of_ne_zero hne), Nat.mod_modEq _ n⟩
    · rintro ⟨hlt, hmod⟩
      rw [← hmod, Nat.mod_eq_of_lt hlt]

/-- Exactly an odd number has a Montgomery word, the only one whose product with it is `-1` modulo a
word; it depends on the last word of the number alone, and is computed from its octets without
leaving signed words of 128 bits.  The square of the radix is the only number below the modulus that
is congruent to it, and exactly zero has none. -/
theorem constants_characterised (n : Nat) :
    ((m n).isSome ↔ n % 2 = 1) ∧
    (∀ word : UInt32, m n = some word ↔ (n * word.toNat : Int) ≡ -1 [ZMOD 2 ^ 32]) ∧
    m (n % 2 ^ 32) = m n ∧
    (∀ octets : Bytes, mOfOctets? octets = some (m (littleEndian octets))) ∧
    (rr? n = none ↔ n = 0) ∧
    ∀ r, rr? n = some r ↔ r < n ∧ r ≡ 2 ^ bitLength n * 2 ^ bitLength n [MOD n] := by
  refine ⟨?_, fun word => m_eq_some_iff, m_mod n, mOfOctets?_eq, rr?_eq_none_iff,
    fun r => rr?_eq_some_iff⟩
  constructor
  · intro h
    rcases Option.isSome_iff_exists.1 h with ⟨word, hword⟩
    exact odd_of_m hword
  · exact isSome_m

/-- Zero, a number of one octet, one that ends in a word of ones, and one far above a word. -/
example : (mOfOctets? [], mOfOctets? [0x03], m (2 ^ 32 - 1), m (2 ^ 3071 + 1)) =
    (some none, some (some 0x55555555), some 1, some (2 ^ 32 - 1)) := by
  decide +kernel

end SecureBoot.Montgomery
