import SecureBoot.Proofs.ByteOrder
import SecureBoot.Proofs.Rsa
import SecureBoot.Rsa.Pss

/-!
# Pss — what is signed verifies

* `accepts_encode`: an encoding of a digest is accepted for that digest, whatever the salt.  Masking
  twice gives the data back, and the bits that an encoding does not have are zero in both.
* `bigEndian_encode_lt`: as a number, an encoding has no more bits than asked for, so it is below
  the modulus.
* `sign_eq_ok` and `verify_apply`: a well-formed key signs every digest, and the signature verifies.
-/

namespace SecureBoot.Pss

/-! ## Masks -/

@[simp] theorem length_mask (seed : Bytes) (len : Nat) : (mask seed len).length = len := by
  have hblocks : ∀ count, ((List.range count).flatMap fun i =>
      (Sha256.digest (seed ++ bigEndianBytes 4 i)).toBytes).length = 32 * count := by
    intro count
    simp [List.length_flatMap, Nat.mul_comm]
  have hle : len ≤ 32 * ((len + 31) / 32) := by omega
  rw [mask, List.length_take, hblocks]
  exact Nat.min_eq_left hle

/-! ## Cleared bits -/

@[simp] theorem length_clearTopBits (bits : Nat) (bs : Bytes) :
    (clearTopBits bits bs).length = bs.length := by
  cases bs with
  | nil => rfl
  | cons b bs => rfl

/-- What is kept of the first octet is a remainder. -/
theorem clearTopBits_cons (bits : Nat) (b : UInt8) (bs : Bytes) :
    clearTopBits bits (b :: bs) = UInt8.ofNat (b.toNat % 2 ^ (8 - bits)) :: bs := by
  rw [clearTopBits, Nat.one_shiftLeft]

theorem clearTopBits_xorBytes (bits : Nat) (xs ys : Bytes) :
    clearTopBits bits (xorBytes xs ys) =
      xorBytes (clearTopBits bits xs) (clearTopBits bits ys) := by
  cases xs with
  | nil => rfl
  | cons x xs =>
      cases ys with
      | nil => rfl
      | cons y ys =>
          have hhead : UInt8.ofNat ((x ^^^ y).toNat % 2 ^ (8 - bits)) =
              UInt8.ofNat (x.toNat % 2 ^ (8 - bits)) ^^^
                UInt8.ofNat (y.toNat % 2 ^ (8 - bits)) := by
            apply UInt8.toNat_inj.1
            simp only [UInt8.toNat_ofNat', UInt8.toNat_xor, Nat.xor_mod_two_pow]
          calc
            clearTopBits bits (xorBytes (x :: xs) (y :: ys))
                = UInt8.ofNat ((x ^^^ y).toNat % 2 ^ (8 - bits)) :: xorBytes xs ys :=
                  clearTopBits_cons bits (x ^^^ y) (xorBytes xs ys)
            _ = xorBytes (UInt8.ofNat (x.toNat % 2 ^ (8 - bits)) :: xs)
                  (UInt8.ofNat (y.toNat % 2 ^ (8 - bits)) :: ys) :=
                  congrArg (· :: xorBytes xs ys) hhead
            _ = xorBytes (clearTopBits bits (x :: xs)) (clearTopBits bits (y :: ys)) := by
                  rw [clearTopBits_cons, clearTopBits_cons]

theorem clearTopBits_clearTopBits (bits : Nat) (bs : Bytes) :
    clearTopBits bits (clearTopBits bits bs) = clearTopBits bits bs := by
  cases bs with
  | nil => rfl
  | cons b bs =>
      have hb : b.toNat % 2 ^ (8 - bits) < 2 ^ 8 := lt_of_le_of_lt (Nat.mod_le _ _) b.toNat_lt
      rw [clearTopBits_cons, clearTopBits_cons, UInt8.toNat_ofNat_of_lt' hb, Nat.mod_mod]

/-- Bits that are zero already. -/
theorem clearTopBits_cons_of_lt {bits : Nat} {b : UInt8} (h : b.toNat < 2 ^ (8 - bits))
    (bs : Bytes) : clearTopBits bits (b :: bs) = b :: bs := by
  rw [clearTopBits_cons, Nat.mod_eq_of_lt h, UInt8.ofNat_toNat]

theorem bigEndian_cons (b : UInt8) (bs : Bytes) :
    bigEndian (b :: bs) = bigEndian bs + 256 ^ bs.length * b.toNat := by
  rw [bigEndian, List.reverse_cons, littleEndian_append, List.length_reverse]
  rfl

theorem bigEndian_lt (bs : Bytes) : bigEndian bs < 256 ^ bs.length := by
  have h := littleEndian_lt bs.reverse
  rwa [List.length_reverse] at h

theorem bigEndian_clearTopBits_lt {bits : Nat} {bs : Bytes} (rest : Bytes) (hbits : bits < 8)
    (hbs : bs ≠ []) :
    bigEndian (clearTopBits bits bs ++ rest) < 2 ^ (8 * (bs.length + rest.length) - bits) := by
  cases bs with
  | nil => exact absurd rfl hbs
  | cons b bs =>
      have hb : b.toNat % 2 ^ (8 - bits) < 2 ^ (8 - bits) := Nat.mod_lt _ (Nat.two_pow_pos _)
      have hoctet : b.toNat % 2 ^ (8 - bits) < 2 ^ 8 := lt_of_le_of_lt (Nat.mod_le _ _) b.toNat_lt
      have htail := bigEndian_lt (bs ++ rest)
      -- The first octet has `8 - bits` places above the octets behind it.
      have hexponent : 8 * ((b :: bs).length + rest.length) - bits =
          8 * (bs ++ rest).length + (8 - bits) := by
        simp only [List.length_cons, List.length_append]
        omega
      calc
        bigEndian (clearTopBits bits (b :: bs) ++ rest)
            = bigEndian (bs ++ rest) + 256 ^ (bs ++ rest).length * (b.toNat % 2 ^ (8 - bits)) := by
              rw [clearTopBits_cons, List.cons_append, bigEndian_cons,
                UInt8.toNat_ofNat_of_lt' hoctet]
        _ < 256 ^ (bs ++ rest).length * (b.toNat % 2 ^ (8 - bits) + 1) := by
              rw [Nat.mul_add, Nat.mul_one, Nat.add_comm]
              exact Nat.add_lt_add_left htail _
        _ ≤ 256 ^ (bs ++ rest).length * 2 ^ (8 - bits) := Nat.mul_le_mul_left _ hb
        _ = 2 ^ (8 * ((b :: bs).length + rest.length) - bits) := by
              rw [hexponent, pow_add, pow_mul]
              rfl

/-! ## Encodings -/

/-- What is masked: zeros, a separator and the salt. -/
def padded (salt : Salt) (bits : Nat) : Bytes :=
  List.replicate (octetsFor bits - 66) 0 ++ 1 :: salt.toBytes

/-- How many bits of the first octet an encoding does not have. -/
def unusedBits (bits : Nat) : Nat :=
  8 * octetsFor bits - bits

section Encodings

variable {bits : Nat}

theorem length_padded (salt : Salt) (hbits : 521 ≤ bits) :
    (padded salt bits).length = octetsFor bits - 33 := by
  have hlen : 66 ≤ octetsFor bits := by
    rw [octetsFor]
    omega
  simp only [padded, List.length_append, List.length_replicate, List.length_cons,
    Octets.length_toBytes, Layout.saltLength]
  omega

/-- Zeros and separator end where the salt starts. -/
theorem take_drop_padded (salt : Salt) (hbits : 521 ≤ bits) :
    (padded salt bits).take (octetsFor bits - 65) =
        List.replicate (octetsFor bits - 66) 0 ++ [1] ∧
      (padded salt bits).drop (octetsFor bits - 65) = salt.toBytes := by
  have hpadded : padded salt bits =
      (List.replicate (octetsFor bits - 66) 0 ++ [1]) ++ salt.toBytes := by
    rw [padded, List.append_assoc]
    rfl
  have hlen : octetsFor bits - 65 =
      (List.replicate (octetsFor bits - 66) (0 : UInt8) ++ [1]).length := by
    rw [List.length_append, List.length_replicate, List.length_singleton, octetsFor]
    omega
  rw [hpadded, hlen, List.take_left, List.drop_left]
  exact ⟨rfl, rfl⟩

theorem unusedBits_lt (bits : Nat) : unusedBits bits < 8 := by
  rw [unusedBits, octetsFor]
  omega

theorem clearTopBits_padded (salt : Salt) (bits : Nat) :
    clearTopBits (unusedBits bits) (padded salt bits) = padded salt bits := by
  have hunused := unusedBits_lt bits
  have hone : 2 ^ 1 ≤ 2 ^ (8 - unusedBits bits) := Nat.pow_le_pow_right (by decide) (by omega)
  -- The first octet is a zero, or the separator if there are no zeros.
  unfold padded
  cases octetsFor bits - 66 with
  | zero => exact clearTopBits_cons_of_lt (lt_of_lt_of_le (by decide) hone) salt.toBytes
  | succ count => exact clearTopBits_cons_of_lt (lt_of_lt_of_le (by decide) hone) _

theorem encode_eq (digest : Digest) (salt : Salt) (bits : Nat) :
    encode digest salt bits =
      clearTopBits (unusedBits bits) (xorBytes (padded salt bits)
        (mask (saltedHash digest salt.toBytes).toBytes (octetsFor bits - 33))) ++
        (saltedHash digest salt.toBytes).toBytes ++ [trailer] := rfl

theorem length_encode (digest : Digest) (salt : Salt) (hbits : 521 ≤ bits) :
    (encode digest salt bits).length = octetsFor bits := by
  have hlen : 66 ≤ octetsFor bits := by
    rw [octetsFor]
    omega
  simp only [encode_eq, List.length_append, length_clearTopBits, length_xorBytes, length_mask,
    length_padded salt hbits, Octets.length_toBytes, List.length_singleton]
  omega

theorem bigEndian_encode_lt (digest : Digest) (salt : Salt) (hbits : 521 ≤ bits) :
    bigEndian (encode digest salt bits) < 2 ^ bits := by
  have hlen := length_encode digest salt hbits
  have hpadded := length_padded salt hbits
  have hexponent : 8 * octetsFor bits - unusedBits bits = bits := by
    rw [unusedBits, octetsFor]
    omega
  rw [encode_eq] at hlen ⊢
  generalize hmasked : xorBytes (padded salt bits) _ = masked at hlen ⊢
  have hne : masked ≠ [] := by
    intro hnil
    have hzero := congrArg List.length (hmasked.trans hnil)
    rw [length_xorBytes, length_mask, hpadded, Nat.min_self, List.length_nil, octetsFor] at hzero
    omega
  have hlt := bigEndian_clearTopBits_lt ((saltedHash digest salt.toBytes).toBytes ++ [trailer])
    (unusedBits_lt bits) hne
  rw [List.append_assoc, List.length_append, length_clearTopBits] at hlen
  rw [hlen, hexponent] at hlt
  rw [List.append_assoc]
  exact hlt

/-- Masking the masked data again, without the bits that an encoding does not have, unmasks them. -/
theorem clearTopBits_xorBytes_masked (salt : Salt) (seed : Bytes) (hbits : 521 ≤ bits) :
    clearTopBits (unusedBits bits) (xorBytes (clearTopBits (unusedBits bits)
        (xorBytes (padded salt bits) (mask seed (octetsFor bits - 33))))
      (mask seed (octetsFor bits - 33))) = padded salt bits := by
  have hlen : (padded salt bits).length ≤
      (clearTopBits (unusedBits bits) (mask seed (octetsFor bits - 33))).length := by
    rw [length_clearTopBits, length_mask, length_padded salt hbits]
  rw [clearTopBits_xorBytes, clearTopBits_clearTopBits, clearTopBits_xorBytes, clearTopBits_padded,
    xorBytes_cancel hlen]

theorem accepts_encode (digest : Digest) (salt : Salt) (hbits : 521 ≤ bits) :
    accepts digest (encode digest salt bits) bits = true := by
  have hle : 66 ≤ octetsFor bits := by
    rw [octetsFor]
    omega
  have hunmask := clearTopBits_xorBytes_masked salt (saltedHash digest salt.toBytes).toBytes hbits
  generalize hmasked : clearTopBits (unusedBits bits) (xorBytes (padded salt bits)
    (mask (saltedHash digest salt.toBytes).toBytes (octetsFor bits - 33))) = masked at hunmask
  generalize hhash : (saltedHash digest salt.toBytes).toBytes = hash at hmasked hunmask
  have hlenHash : hash.length = 32 := by
    rw [← hhash]
    exact Octets.length_toBytes _
  have hlenMasked : masked.length = octetsFor bits - 33 := by
    rw [← hmasked, length_clearTopBits, length_xorBytes, length_mask, length_padded salt hbits,
      Nat.min_self]
  -- Each part that the check cuts out is one that was put in.
  have hencode : encode digest salt bits = masked ++ hash ++ [trailer] := by
    rw [encode_eq, hhash, hmasked]
  have htake : (encode digest salt bits).take (octetsFor bits - 33) = masked := by
    rw [hencode, List.append_assoc, ← hlenMasked, List.take_left]
  have hdrop : ((encode digest salt bits).drop (octetsFor bits - 33)).take 32 = hash := by
    rw [hencode, List.append_assoc, ← hlenMasked, List.drop_left, ← hlenHash, List.take_left]
  have hlast : (encode digest salt bits).drop (octetsFor bits - 1) = [trailer] := by
    have hlen : octetsFor bits - 1 = (masked ++ hash).length := by
      rw [List.length_append, hlenMasked, hlenHash]
      omega
    rw [hencode, hlen, List.drop_left]
  have hclear : clearTopBits (unusedBits bits) masked = masked := by
    rw [← hmasked, clearTopBits_clearTopBits]
  rcases take_drop_padded salt hbits with ⟨hseparator, hsalt⟩
  unfold unusedBits at hclear hunmask
  simp only [accepts, htake, hdrop, hlast, hclear, hunmask, hseparator, hsalt, hhash, hle,
    decide_true, beq_self_eq_true, Bool.and_self]

end Encodings

/-! ## Signatures -/

section Signatures

variable {key : Rsa.PrivateKey}

/-- The number that an encoding is can be signed. -/
theorem bigEndian_encode_lt_modulus (digest : Digest) (salt : Salt)
    (hbits : 521 ≤ encodingBits key.toPublicKey) :
    bigEndian (encode digest salt (encodingBits key.toPublicKey)) < key.modulus := by
  have hlt : encodingBits key.toPublicKey < bitLength key.modulus := by
    rw [encodingBits] at hbits ⊢
    omega
  exact lt_of_lt_of_le (bigEndian_encode_lt digest salt hbits) (two_pow_le_of_lt_bitLength hlt)

theorem sign_eq_ok (h : key.WellFormed) (digest : Digest) (salt : Salt)
    (hbits : 521 ≤ encodingBits key.toPublicKey) :
    sign key digest salt =
      .ok (key.apply (bigEndian (encode digest salt (encodingBits key.toPublicKey)))) := by
  have hundo := h.apply_apply (bigEndian_encode_lt_modulus digest salt hbits)
  rw [sign, if_pos hundo]

theorem take_littleEndianBytes (len more n : Nat) :
    (littleEndianBytes (len + more) n).take len = littleEndianBytes len n := by
  induction len generalizing n with
  | zero => rfl
  | succ len ih =>
      rw [Nat.succ_add, littleEndianBytes, List.take_succ_cons, ih, littleEndianBytes]

/-- A number without leading octets. -/
theorem drop_bigEndianBytes (len more n : Nat) :
    (bigEndianBytes (len + more) n).drop more = bigEndianBytes len n := by
  have hlen : (littleEndianBytes (len + more) n).length - more = len := by
    rw [length_littleEndianBytes, Nat.add_sub_cancel]
  rw [bigEndianBytes, List.drop_reverse, hlen, take_littleEndianBytes, bigEndianBytes]

theorem modulus_lt_size (key : Rsa.PublicKey) : key.modulus < 256 ^ key.size := by
  apply lt_pow_of_bitLength_le
  rw [Rsa.PublicKey.size]
  omega

/-- The signature over a digest verifies for that digest. -/
theorem verify_apply (h : key.WellFormed) (digest : Digest) (salt : Salt)
    (hbits : 521 ≤ encodingBits key.toPublicKey) :
    verify key.toPublicKey digest (bigEndianBytes key.size
      (key.apply (bigEndian (encode digest salt (encodingBits key.toPublicKey))))) = true := by
  have hlt := bigEndian_encode_lt_modulus digest salt hbits
  have hlen := length_encode digest salt hbits
  have haccepts := accepts_encode digest salt hbits
  generalize hencoded : encode digest salt (encodingBits key.toPublicKey) = encoded
    at hlt hlen haccepts ⊢
  -- A signature is below the modulus, so no octet of it is dropped.
  have hsignature : bigEndian (bigEndianBytes key.size (key.apply (bigEndian encoded))) =
      key.apply (bigEndian encoded) := by
    rw [bigEndian_bigEndianBytes]
    exact Nat.mod_eq_of_lt (lt_trans (h.apply_lt _) (modulus_lt_size key.toPublicKey))
  have hsize : key.size = encoded.length + (key.size - encoded.length) := by
    rw [hlen, octetsFor, encodingBits, Rsa.PublicKey.size]
    omega
  -- Under some keys the power has a leading octet that the encoding has not.
  have hpower : (bigEndianBytes key.size (bigEndian encoded)).drop (key.size - encoded.length) =
      encoded := by
    conv_lhs => rw [hsize]
    rw [Nat.add_sub_cancel_left, drop_bigEndianBytes, bigEndianBytes_bigEndian]
  simp only [verify, hsignature, h.apply_apply hlt, ← hlen, hpower, haccepts,
    length_bigEndianBytes, beq_self_eq_true, Bool.and_self]

end Signatures

end SecureBoot.Pss
