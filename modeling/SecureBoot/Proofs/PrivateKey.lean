import Mathlib.Data.Nat.Prime.Basic
import SecureBoot.KeyFile.PrivateKeyInfo
import SecureBoot.Proofs.Euclid
import SecureBoot.Proofs.PublicKeyInfo
import SecureBoot.Proofs.Rsa
import SecureBoot.Rsa.Generator

/-!
# PrivateKey — private keys that were written are read back

A private key is `Complete` if its numbers belong together and the inverse of one prime modulo the
other exists, as it does for a new key of two primes (`Rsa.Generator.complete_of_key?`).  Such a key
is read back from the PKCS#1 format (`Rsa.PrivateKey.exists_toPkcs1`) and from the PKCS#8 format
(`PrivateKeyInfo.exists_ofRsa`).
-/

namespace SecureBoot

open Der

theorem Der.mapM_uint?_ofUint (numbers : List Nat) :
    (numbers.map Element.ofUint).mapM Element.uint? = some numbers := by
  induction numbers with
  | nil => rfl
  | cons n numbers ih => simp [uint?_ofUint, ih]

/-! ## RSA keys -/

namespace Rsa

/-- A private key whose numbers can all be written. -/
structure PrivateKey.Complete (key : PrivateKey) : Prop where
  check : key.check = true
  privateExponent_lt : key.privateExponent < key.modulus
  coprime : Nat.Coprime key.prime2 key.prime1

theorem PrivateKey.Usable.complete {key : PrivateKey} (h : key.Usable)
    (hlt : key.privateExponent < key.modulus) : key.Complete where
  check := by
    have hfirst : key.exponent * key.privateExponent % (key.prime1 - 1) = 1 % (key.prime1 - 1) :=
      h.inverse1
    have hsecond : key.exponent * key.privateExponent % (key.prime2 - 1) = 1 % (key.prime2 - 1) :=
      h.inverse2
    simp [PrivateKey.check, h.check, Except.isOk, Except.toBool, h.prime1.one_le, h.prime2.one_le,
      h.modulus_eq, hfirst, hsecond]
  privateExponent_lt := hlt
  coprime := (Nat.coprime_primes h.prime2 h.prime1).2 h.ne.symm

example : sampleKey.Complete :=
  ⟨by decide +kernel, by decide +kernel, by decide +kernel⟩

/-- The key of two different primes is complete. -/
theorem Generator.complete_of_key? {prime1 prime2 : Nat} {key : PrivateKey}
    (h : key? prime1 prime2 = some key) (h₁ : prime1.Prime) (h₂ : prime2.Prime) :
    key.Complete := by
  simp only [key?, bind, Option.bind_eq_some_iff] at h
  rcases h with ⟨privateExponent, hinverse, h⟩
  split at h
  · next hcheck =>
    cases h
    have hpos : 0 < (prime1 - 1) * (prime2 - 1) :=
      Nat.mul_pos (Nat.sub_pos_of_lt h₁.one_lt) (Nat.sub_pos_of_lt h₂.one_lt)
    refine ⟨hcheck.2, ?_, (Nat.coprime_primes h₂ h₁).2 hcheck.1.symm⟩
    calc
      privateExponent < (prime1 - 1) * (prime2 - 1) := (mul_modInverse? hpos hinverse).1
      _ ≤ prime1 * prime2 := Nat.mul_le_mul (Nat.sub_le _ _) (Nat.sub_le _ _)
  · cases h

namespace PrivateKey

variable {key : PrivateKey}

/-- No number of a complete key is larger than its modulus. -/
theorem Complete.exists_numbers (h : key.Complete) :
    ∃ exponent1 exponent2 coefficient, key.numbers? = some [0, key.modulus, key.exponent,
        key.privateExponent, key.prime1, key.prime2, exponent1, exponent2, coefficient] ∧
      ∀ n ∈ [0, key.modulus, key.exponent, key.privateExponent, key.prime1, key.prime2, exponent1,
        exponent2, coefficient], bitLength n ≤ 4096 := by
  have hcheck := h.check
  simp only [PrivateKey.check, Bool.and_eq_true, decide_eq_true_eq, beq_iff_eq] at hcheck
  rcases hcheck with ⟨⟨⟨hpublic, hpos₁, hpos₂⟩, hmodulus⟩, -⟩
  have hkey : key.toPublicKey.check = .ok () := by
    cases hresult : key.toPublicKey.check with
    | ok value => rfl
    | error rejection =>
        rw [hresult] at hpublic
        cases hpublic
  rcases PublicKey.check_eq_ok_iff.1 hkey with ⟨hbits, ⟨hexponent, -⟩, -⟩
  rcases Option.isSome_iff_exists.1 (isSome_modInverse? h.coprime) with ⟨coefficient, hinverse⟩
  have hprime₁ : key.prime1 ≤ key.modulus := by
    rw [← hmodulus]
    exact Nat.le_mul_of_pos_right _ hpos₂
  have hprime₂ : key.prime2 ≤ key.modulus := by
    rw [← hmodulus]
    exact Nat.le_mul_of_pos_left _ hpos₁
  have hcoefficient := (mul_modInverse? hpos₁ hinverse).1
  have hprivate := h.privateExponent_lt
  have hsmall : ∀ n ≤ key.modulus, bitLength n ≤ 4096 := fun n hn =>
    Nat.le_trans (bitLength_mono hn) hbits
  refine ⟨key.privateExponent % (key.prime1 - 1), key.privateExponent % (key.prime2 - 1),
    coefficient, ?_, ?_⟩
  · rw [numbers?, hinverse]
    rfl
  · have hremainder (n : Nat) : key.privateExponent % n ≤ key.modulus :=
      Nat.le_trans (Nat.mod_le _ _) hprivate.le
    simp only [List.forall_mem_cons]
    exact ⟨hsmall _ (Nat.zero_le _), hsmall _ (Nat.le_refl _), hsmall _ hexponent.le,
      hsmall _ hprivate.le, hsmall _ hprime₁, hsmall _ hprime₂, hsmall _ (hremainder _),
      hsmall _ (hremainder _), hsmall _ (hcoefficient.le.trans hprime₁), List.forall_mem_nil _⟩

/-- A complete key is written, in few octets, and read back. -/
theorem Complete.exists_toPkcs1 (h : key.Complete) :
    ∃ data, key.toPkcs1? = some data ∧ data.length ≤ 5000 ∧ ofPkcs1? data = some key := by
  rcases h.exists_numbers with ⟨exponent1, exponent2, coefficient, hnumbers, hsmall⟩
  rcases readable_numbers hsmall with ⟨hmembers, hlength⟩
  simp only [List.length_cons, List.length_nil] at hlength
  have hreadable := readable_construct (Nat.le_trans hlength (by decide))
  have hwhole := length_encode_le (construct Tag.sequence ([0, key.modulus, key.exponent,
    key.privateExponent, key.prime1, key.prime2, exponent1, exponent2, coefficient].map
      Element.ofUint))
  refine ⟨_, by rw [toPkcs1?, hnumbers]; rfl, hwhole.trans ?_, ?_⟩
  · exact Nat.le_trans (Nat.add_le_add_right hlength 6) (by decide)
  · simp only [ofPkcs1?, element?_encode hreadable, members?_construct _ hmembers,
      mapM_uint?_ofUint, bind, Option.bind_some, h.check, if_true]
    rfl

end PrivateKey

end Rsa

/-! ## Private keys of any algorithm -/

namespace PrivateKeyInfo

theorem exists_ofRsa {key : Rsa.PrivateKey} (h : key.Complete) :
    ∃ data, ofRsa? key = some data ∧ data.length ≤ 6000 ∧ rsaKey? data = some key := by
  rcases h.exists_toPkcs1 with ⟨pkcs1, hwritten, hlength, hread⟩
  let members := [Element.ofUint 0, Algorithm.rsa.toElement, ⟨Tag.octetString, pkcs1⟩]
  have hmax : maxLength = 268435455 := rfl
  have hmembers : ∀ e ∈ members, e.Readable := by
    simp only [members, List.forall_mem_cons]
    exact ⟨⟨by decide, by decide⟩, ⟨by decide, by decide⟩,
      ⟨(by decide : Tag.isValid Tag.octetString = true), by dsimp only; omega⟩,
      List.forall_mem_nil _⟩
  have hcontent : (members.flatMap Element.encode).length ≤ 5100 := by
    have hkey := length_encode_le ⟨Tag.octetString, pkcs1⟩
    have hversion : (Element.ofUint 0).encode.length = 3 := by
      decide
    have halgorithm : Algorithm.rsa.toElement.encode.length = 15 := by
      decide
    simp only [members, List.flatMap_cons, List.flatMap_nil, List.length_append, List.length_nil,
      hversion, halgorithm]
    dsimp only at hkey
    omega
  have hreadable := readable_construct (hcontent.trans (by decide))
  have hwhole := length_encode_le (construct Tag.sequence members)
  refine ⟨(construct Tag.sequence members).encode, by rw [ofRsa?, hwritten]; rfl, ?_, ?_⟩
  · exact hwhole.trans (Nat.add_le_add_right hcontent 6 |>.trans (by decide))
  · have htail : isTail 0 [] = true := by
      decide
    simp only [rsaKey?, element?_encode hreadable, members?_construct _ hmembers, members, bind,
      Option.bind_some, uint?_ofUint, PublicKeyInfo.ofAlgorithm?_rsa, htail, and_self, if_true,
      Element.content?, hread]

end PrivateKeyInfo

end SecureBoot
