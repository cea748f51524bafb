import SecureBoot.KeyFile.PublicKeyInfo
import SecureBoot.Proofs.Arithmetic
import SecureBoot.Proofs.Der

/-!
# PublicKeyInfo — RSA keys that were written are read back

* `Der.uint?_encodeUint`: a number is written in the fewest octets, with one for the sign.
* `Rsa.PublicKey.ofPkcs1?_toPkcs1`: a key that may be used is read back from the PKCS#1 format.
* `PublicKeyInfo.ofBytes?_encode_ofRsa` and `PublicKeyInfo.rsaKey_ofRsa`: so it is from an info of
  any algorithm.
* `PublicKeyInfo.ofBytes?_encode`: what an info says depends on its element alone.
-/

namespace SecureBoot.Der

/-! ## Numbers -/

/-- The leading octet of a written number leaves room for a sign. -/
theorem leading_lt (n : Nat) : n / 256 ^ (bitLength n / 8) < 0x80 := by
  have hle : bitLength n ≤ 8 * (bitLength n / 8) + 7 := by
    omega
  have hlt := bitLength_le_iff.1 hle
  rw [Nat.pow_add, Nat.pow_mul] at hlt
  exact Nat.div_lt_of_lt_mul hlt

theorem toNat_leading (n : Nat) :
    (UInt8.ofNat (n / 256 ^ (bitLength n / 8))).toNat = n / 256 ^ (bitLength n / 8) := by
  rw [UInt8.toNat_ofNat']
  exact Nat.mod_eq_of_lt (Nat.lt_trans (leading_lt n) (by decide))

/-- A leading zero octet is there because the one behind it looks negative. -/
theorem second_of_leading_eq_zero {n j : Nat} (hlength : bitLength n / 8 = j + 1)
    (hzero : n / 256 ^ (j + 1) = 0) : 0x80 ≤ (UInt8.ofNat (n / 256 ^ j)).toNat := by
  have hbelow : n < 256 ^ j * 256 :=
    (Nat.div_eq_zero_iff_lt (Nat.pow_pos (by decide))).1 hzero
  have habove : 2 ^ 7 * 256 ^ j ≤ n := by
    have hle := two_pow_le_of_lt_bitLength (n := n) (k := 7 + 8 * j) (by omega)
    rwa [Nat.pow_add, Nat.pow_mul] at hle
  rw [UInt8.toNat_ofNat', Nat.mod_eq_of_lt (Nat.div_lt_of_lt_mul hbelow)]
  exact (Nat.le_div_iff_mul_le (Nat.pow_pos (by decide))).2 habove

theorem bigEndian_encodeUint (n : Nat) : bigEndian (encodeUint n) = n := by
  have hlt := (Nat.div_lt_iff_lt_mul (Nat.pow_pos (by decide))).1 (leading_lt n)
  rw [encodeUint, bigEndian_bigEndianBytes, Nat.pow_succ]
  exact Nat.mod_eq_of_lt (by omega)

/-- A number is written in the fewest octets, and it does not look negative. -/
theorem uint?_encodeUint (n : Nat) : uint? (encodeUint n) = some n := by
  have hleading := leading_lt n
  have hoctet := toNat_leading n
  have hvalue := bigEndian_encodeUint n
  rw [encodeUint] at hvalue ⊢
  -- A single octet is read for itself; with more of them the first one may be superfluous.
  cases hlength : bitLength n / 8 with
  | zero =>
      have hsmall : n < 0x80 := by
        simpa [hlength] using hleading
      have hmod : n % 256 = n := Nat.mod_eq_of_lt (Nat.lt_trans hsmall (by decide))
      simp [bigEndianBytes, littleEndianBytes, uint?, hmod, hsmall]
  | succ j =>
      rw [hlength] at hleading hoctet hvalue
      rw [bigEndianBytes_succ, bigEndianBytes_succ j n] at hvalue ⊢
      have hpositive : (UInt8.ofNat (n / 256 ^ (j + 1))).toNat < 0x80 := by
        rwa [hoctet]
      have hshortest : UInt8.ofNat (n / 256 ^ (j + 1)) ≠ 0 ∨
          0x80 ≤ (UInt8.ofNat (n / 256 ^ j)).toNat := by
        by_cases hzero : UInt8.ofNat (n / 256 ^ (j + 1)) = 0
        · rw [hzero] at hoctet
          exact .inr (second_of_leading_eq_zero hlength hoctet.symm)
        · exact .inl hzero
      rw [uint?, if_pos ⟨hpositive, hshortest⟩, hvalue]

theorem uint?_ofUint (n : Nat) : (Element.ofUint n).uint? = some n := by
  simp [Element.uint?, Element.ofUint, Element.content?, uint?_encodeUint]

/-! ## Lengths of what is written -/

theorem length_encodeLength_le (n : Nat) : (encodeLength n).length ≤ 5 := by
  simp only [encodeLength]
  repeat' split
  all_goals simp

theorem length_encode_le (e : Element) : e.encode.length ≤ e.content.length + 6 := by
  have hlength := length_encodeLength_le e.content.length
  simp only [Element.encode, List.length_append, List.length_cons]
  omega

theorem readable_ofUint {n : Nat} (h : bitLength n / 8 + 1 ≤ maxLength) :
    (Element.ofUint n).Readable where
  tag_isValid := (by decide : Tag.isValid Tag.integer = true)
  length_le := by simpa [Element.ofUint, encodeUint] using h

/-- Numbers of at most 4096 bits are readable, and written in few octets. -/
theorem readable_numbers {numbers : List Nat} (h : ∀ n ∈ numbers, bitLength n ≤ 4096) :
    (∀ e ∈ numbers.map Element.ofUint, e.Readable) ∧
      ((numbers.map Element.ofUint).flatMap Element.encode).length ≤ 519 * numbers.length := by
  have hmax : maxLength = 268435455 := rfl
  induction numbers with
  | nil => exact ⟨List.forall_mem_nil _, Nat.le_refl 0⟩
  | cons n numbers ih =>
      rcases List.forall_mem_cons.1 h with ⟨hn, hnumbers⟩
      rcases ih hnumbers with ⟨hreadable, hlength⟩
      have hfirst := length_encode_le (Element.ofUint n)
      simp only [Element.ofUint, encodeUint, length_bigEndianBytes] at hfirst
      refine ⟨List.forall_mem_cons.2 ⟨readable_ofUint (by omega), hreadable⟩, ?_⟩
      simp only [List.map_cons, List.flatMap_cons, List.length_append, List.length_cons,
        Element.ofUint, encodeUint] at hlength ⊢
      omega

theorem readable_construct {es : List Element}
    (h : (es.flatMap Element.encode).length ≤ maxLength) :
    (construct Tag.sequence es).Readable :=
  ⟨(by decide : Tag.isValid Tag.sequence = true), h⟩

theorem bitString?_ofBitString (octets : Bytes) :
    (Element.ofBitString ⟨0, octets⟩).bitString? = some ⟨0, octets⟩ := by
  simp [Element.bitString?, Element.ofBitString, Element.content?, BitString.ofContent?]

end SecureBoot.Der

namespace SecureBoot

open Der

/-! ## RSA keys -/

namespace Rsa.PublicKey

theorem check_eq_ok_iff {key : PublicKey} :
    key.check = .ok () ↔ bitLength key.modulus ≤ 4096 ∧
      (key.exponent < key.modulus ∧ key.modulus % 2 = 1) ∧
      key.exponent % 2 = 1 ∧ 2 ≤ key.exponent ∧ key.exponent < 2 ^ 33 := by
  have hlong : 1 <<< maxExponentBits = 2 ^ 33 := by decide
  simp only [check, maxModulusBits, hlong]
  constructor
  · intro h
    repeat' split at h
    all_goals first | omega | cases h
  · rintro ⟨hbits, hmodulus, hexponent, htwo, hlt⟩
    rw [if_neg (by omega), if_neg (by omega), if_neg (by omega), if_neg (by omega),
      if_neg (by omega)]

/-- The numbers of a key that may be used are short. -/
theorem bitLength_le_of_check {key : PublicKey} (h : key.check = .ok ()) :
    ∀ n ∈ [key.modulus, key.exponent], bitLength n ≤ 4096 := by
  rcases check_eq_ok_iff.1 h with ⟨hmodulus, ⟨hlt, -⟩, -⟩
  simp only [List.forall_mem_cons]
  exact ⟨hmodulus, Nat.le_trans (bitLength_mono hlt.le) hmodulus, List.forall_mem_nil _⟩

theorem readable_members {key : PublicKey} (h : key.check = .ok ()) :
    ∀ e ∈ [Element.ofUint key.modulus, Element.ofUint key.exponent], e.Readable :=
  (readable_numbers (bitLength_le_of_check h)).1

theorem length_content_toPkcs1_le {key : PublicKey} (h : key.check = .ok ()) :
    ([Element.ofUint key.modulus, Element.ofUint key.exponent].flatMap Element.encode).length ≤
      1038 :=
  (readable_numbers (bitLength_le_of_check h)).2

theorem length_toPkcs1_le {key : PublicKey} (h : key.check = .ok ()) :
    key.toPkcs1.length ≤ 1044 := by
  have hlength := length_encode_le (construct Tag.sequence
    [Element.ofUint key.modulus, Element.ofUint key.exponent])
  exact Nat.le_trans hlength (Nat.add_le_add_right (length_content_toPkcs1_le h) 6)

theorem ofPkcs1?_toPkcs1 {key : PublicKey} (h : key.check = .ok ()) :
    ofPkcs1? key.toPkcs1 = some key := by
  have hreadable := readable_construct (Nat.le_trans (length_content_toPkcs1_le h) (by decide))
  simp [ofPkcs1?, toPkcs1, element?_encode hreadable, members?_construct _ (readable_members h),
    uint?_ofUint, h, Except.isOk, Except.toBool]

end Rsa.PublicKey

/-! ## Public keys of any algorithm -/

namespace PublicKeyInfo

theorem ofAlgorithm?_rsa : Algorithm.ofElement? Algorithm.rsa.toElement = some Algorithm.rsa := by
  decide +kernel

/-- The key of an info with an RSA key, as an element. -/
theorem length_ofBitString_le {key : Rsa.PublicKey} (h : key.check = .ok ()) :
    (Element.ofBitString ⟨0, key.toPkcs1⟩).content.length ≤ 1045 := by
  have hlength := Rsa.PublicKey.length_toPkcs1_le h
  simp only [Element.ofBitString, List.length_cons]
  omega

theorem readable_members_ofRsa {key : Rsa.PublicKey} (h : key.check = .ok ()) :
    ∀ e ∈ [Algorithm.rsa.toElement, Element.ofBitString ⟨0, key.toPkcs1⟩], e.Readable := by
  have hkey := Nat.le_trans (length_ofBitString_le h) (by decide : 1045 ≤ maxLength)
  simp only [List.forall_mem_cons]
  exact ⟨⟨by decide, by decide⟩, ⟨(by decide : Tag.isValid Tag.bitString = true), hkey⟩,
    List.forall_mem_nil _⟩

theorem length_content_ofRsa_le {key : Rsa.PublicKey} (h : key.check = .ok ()) :
    (ofRsa key).toElement.content.length ≤ 2000 := by
  have hkey := length_ofBitString_le h
  have hwhole := length_encode_le (Element.ofBitString ⟨0, key.toPkcs1⟩)
  have halgorithm : Algorithm.rsa.toElement.encode.length = 15 := by
    decide
  simp only [toElement, construct, ofRsa, List.flatMap_cons, List.flatMap_nil, List.length_append,
    List.length_nil, halgorithm]
  omega

theorem readable_toElement_ofRsa {key : Rsa.PublicKey} (h : key.check = .ok ()) :
    (ofRsa key).toElement.Readable :=
  readable_construct (Nat.le_trans (length_content_ofRsa_le h) (by decide))

theorem ofElement?_toElement_ofRsa {key : Rsa.PublicKey} (h : key.check = .ok ()) :
    ofElement? (ofRsa key).toElement = some (ofRsa key) := by
  simp [ofElement?, toElement, ofRsa, members?_construct _ (readable_members_ofRsa h),
    ofAlgorithm?_rsa, bitString?_ofBitString]

theorem ofBytes?_encode {e : Element} (h : e.Readable) : ofBytes? e.encode = ofElement? e := by
  simp [ofBytes?, element?_encode h]

theorem ofBytes?_encode_ofRsa {key : Rsa.PublicKey} (h : key.check = .ok ()) :
    ofBytes? (ofRsa key).toElement.encode = some (ofRsa key) := by
  rw [ofBytes?_encode (readable_toElement_ofRsa h), ofElement?_toElement_ofRsa h]

theorem rsaKey_ofRsa {key : Rsa.PublicKey} (h : key.check = .ok ()) :
    (ofRsa key).rsaKey = .ok key := by
  simp [rsaKey, ofRsa, Algorithm.rsa, BitString.whole?, Rsa.PublicKey.ofPkcs1?_toPkcs1 h]

end PublicKeyInfo

end SecureBoot
