import Mathlib.Algebra.GroupWithZero.Nat
import SecureBoot.Bytes

/-!
# Byte order — octet strings as numbers, digit by digit and bit by bit

`littleEndian` reads an octet string as a number.  This file says how that number is put together:

* concatenation (`littleEndian_append`) and single bits (`testBit_littleEndian`);
* reading what was written keeps what fits (`littleEndian_littleEndianBytes`), and strings of one
  length are equal if they are the same number (`eq_of_littleEndian_eq`).

Bits are counted octet by octet, least significant bit first, which is the order in which the
checksum takes them and the order of the binary digits of `littleEndian`.
-/

namespace SecureBoot

/-! ## Numbers -/

/-- A string of `k` octets is below `256 ^ k`. -/
theorem littleEndian_lt (bs : Bytes) : littleEndian bs < 256 ^ bs.length := by
  induction bs with
  | nil => simp [littleEndian]
  | cons b bs ih =>
    have hb : b.toNat < 256 := b.toNat_lt
    simp only [littleEndian, List.length_cons, Nat.pow_succ]
    omega

/-- Reading back what was written keeps what fits. -/
theorem littleEndian_littleEndianBytes (len n : Nat) :
    littleEndian (littleEndianBytes len n) = n % 256 ^ len := by
  induction len generalizing n with
  | zero => simp [littleEndianBytes, littleEndian, Nat.mod_one]
  | succ len ih =>
    simp only [littleEndianBytes, littleEndian, ih]
    have hb : (UInt8.ofNat n).toNat = n % 256 := by simp
    rw [hb, Nat.pow_succ, Nat.mul_comm (256 ^ len) 256, Nat.mod_mul]

theorem littleEndian_append (xs ys : Bytes) :
    littleEndian (xs ++ ys) = littleEndian xs + 256 ^ xs.length * littleEndian ys := by
  induction xs with
  | nil => simp [littleEndian]
  | cons x xs ih =>
      calc
        littleEndian (x :: xs ++ ys)
            = x.toNat + 256 * (littleEndian xs + 256 ^ xs.length * littleEndian ys) := by
              rw [List.cons_append, littleEndian, ih]
        _ = x.toNat + 256 * littleEndian xs + 256 ^ (xs.length + 1) * littleEndian ys := by
              rw [Nat.mul_add, Nat.pow_succ, ← Nat.mul_assoc, Nat.mul_comm 256 (256 ^ _),
                Nat.add_assoc]

/-- The octets at the front are the low digits. -/
theorem littleEndian_take (k : Nat) (bs : Bytes) :
    littleEndian (bs.take k) = littleEndian bs % 256 ^ k := by
  rcases Nat.le_total bs.length k with hle | hle
  · have hlt := Nat.lt_of_lt_of_le (littleEndian_lt bs) (Nat.pow_le_pow_right (by decide) hle)
    rw [List.take_of_length_le hle, Nat.mod_eq_of_lt hlt]
  · have hlength : (bs.take k).length = k := by
      rw [List.length_take]
      exact Nat.min_eq_left hle
    have hlt := littleEndian_lt (bs.take k)
    rw [hlength] at hlt
    calc
      littleEndian (bs.take k)
          = (littleEndian (bs.take k) + 256 ^ k * littleEndian (bs.drop k)) % 256 ^ k := by
            rw [Nat.add_mul_mod_self_left, Nat.mod_eq_of_lt hlt]
      _ = littleEndian (bs.take k ++ bs.drop k) % 256 ^ k := by
            rw [littleEndian_append, hlength]
      _ = littleEndian bs % 256 ^ k := by
            rw [List.take_append_drop]

theorem littleEndian_replicate_zero (k : Nat) : littleEndian (List.replicate k 0) = 0 := by
  induction k with
  | zero => rfl
  | succ k ih => rw [List.replicate_succ, littleEndian, ih, Nat.mul_zero]; rfl

/-- Strings of one length are equal if they are the same number. -/
theorem eq_of_littleEndian_eq {xs ys : Bytes} (hlen : xs.length = ys.length)
    (h : littleEndian xs = littleEndian ys) : xs = ys := by
  have hxs := littleEndianBytes_littleEndian xs
  have hys := littleEndianBytes_littleEndian ys
  rw [← hxs, hlen, h, hys]

theorem bigEndianBytes_bigEndian (bs : Bytes) : bigEndianBytes bs.length (bigEndian bs) = bs := by
  have h := littleEndianBytes_littleEndian bs.reverse
  rw [List.length_reverse] at h
  rw [bigEndianBytes, bigEndian, h, List.reverse_reverse]

theorem bigEndian_bigEndianBytes (len n : Nat) :
    bigEndian (bigEndianBytes len n) = n % 256 ^ len := by
  rw [bigEndian, bigEndianBytes, List.reverse_reverse, littleEndian_littleEndianBytes]

/-- The last digit that is written is the leading one. -/
theorem littleEndianBytes_succ (k n : Nat) :
    littleEndianBytes (k + 1) n = littleEndianBytes k n ++ [UInt8.ofNat (n / 256 ^ k)] := by
  induction k generalizing n with
  | zero => simp [littleEndianBytes]
  | succ k ih =>
      rw [littleEndianBytes, ih, littleEndianBytes, List.cons_append, Nat.div_div_eq_div_mul,
        ← Nat.pow_succ']

theorem bigEndianBytes_succ (k n : Nat) :
    bigEndianBytes (k + 1) n = UInt8.ofNat (n / 256 ^ k) :: bigEndianBytes k n := by
  simp [bigEndianBytes, littleEndianBytes_succ]

namespace Octets

theorem toNat_lt {n : Nat} (o : Octets n) : o.toNat < 256 ^ n := by
  have h := littleEndian_lt o.toBytes
  rwa [o.length_toBytes] at h

theorem toNat_ofNat (n x : Nat) : (ofNat n x).toNat = x % 256 ^ n :=
  littleEndian_littleEndianBytes n x

theorem toBytes_ofNatBig (n x : Nat) : (ofNatBig n x).toBytes = bigEndianBytes n x := rfl

end Octets

/-! ## Bits -/

/-- The bit at a position, `false` behind the end. -/
def bitAt (bs : Bytes) (i : Nat) : Bool :=
  (bs.getD (i / 8) 0).toNat.testBit (i % 8)

theorem testBit_littleEndian (bs : Bytes) (i : Nat) :
    (littleEndian bs).testBit i = bitAt bs i := by
  induction bs generalizing i with
  | nil => simp [littleEndian, bitAt]
  | cons b bs ih =>
      have hb : b.toNat < 2 ^ 8 := b.toNat_lt
      have hsum : littleEndian (b :: bs) = 2 ^ 8 * littleEndian bs + b.toNat :=
        Nat.add_comm b.toNat (256 * littleEndian bs)
      rw [hsum, Nat.testBit_two_pow_mul_add _ hb]
      by_cases hi : i < 8
      · simp [hi, bitAt, Nat.div_eq_of_lt hi, Nat.mod_eq_of_lt hi]
      · have hdiv : i / 8 = (i - 8) / 8 + 1 := by omega
        have hmod : i % 8 = (i - 8) % 8 := by omega
        rw [if_neg hi, ih, bitAt, bitAt, hdiv, hmod, List.getD_cons_succ]

theorem littleEndian_lt_two_pow (bs : Bytes) : littleEndian bs < 2 ^ (8 * bs.length) := by
  rw [Nat.pow_mul]
  exact littleEndian_lt bs

end SecureBoot
